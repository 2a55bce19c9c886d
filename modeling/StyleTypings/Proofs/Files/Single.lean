import StyleTypings.Proofs.Files.Denoting
import StyleTypings.Proofs.Files.Spelling

/-!
# Patterns that name a file

A file is matched as a walk from its directory writes it: as the directory and the name. The glob
matches the pattern as it is written, but for leading full stops. The two differ if idle parts
stand before the name, so that then the file is not selected. Nor is it if the glob takes a
backslash for itself, though then it may match another file, nor if the walk leaves out the
directory or the file.
-/

namespace StyleTypings
namespace FilePattern

variable {environment : Environment} {world : World} {text : Text} {files : List Path}
  {pattern : FilePattern} {place : Place} {path : Path} {names : List Text}

/-- The directory of a pattern that names a file. -/
def directoryOf (text : Text) : Path :=
  (Path.parent? ⟨text⟩).getD "."

/-- A walk from the directory of a file finds the file, as the glob of the pattern asks for it. -/
structure FindsFile (text : Text) : Prop where
  /-- The glob has nothing to read otherwise. -/
  plain : '\\' ∉ text
  /-- The walk writes the file as the pattern does. -/
  rejoined : (directoryOf text).join ⟨Path.lastPart ⟨text⟩⟩ = ⟨text⟩
  /-- The walk does not leave out the directory. -/
  outside : (directoryOf text).shortName ≠ moduleDirectory
  /-- The walk does not leave out the file. -/
  kept : Path.lastPart ⟨text⟩ ≠ moduleDirectory

/-! ## The walk around a file -/

theorem parent?_getD {path : Path} (solid : Path.isIdle path.lastPart = false) :
    path.parent?.getD ⟨[]⟩ = directoryOf path.text := by
  obtain ⟨front, split⟩ := Path.exists_parts_of_lastPart solid
  obtain ⟨directory, isParent, -⟩ := Path.exists_parent split solid nofun
  rw [directoryOf, isParent]
  rfl

theorem isAdmissible_directoryOf
    (plain : path.BeginsPlainly)
    (solid : Path.isIdle path.lastPart = false)
    (admissible : path.isAdmissible = true) :
    (directoryOf path.text).isAdmissible = true := by
  obtain ⟨front, idle, whole, -, begins, -⟩ := Path.exists_spelling plain solid
  rw [parent?_getD solid] at begins
  have shorter : (directoryOf path.text).text <+: path.text :=
    begins.trans (whole ▸ List.prefix_append front _)
  exact Path.isAdmissible_of_byteSize_le (Text.byteSize_le_of_prefix shorter) admissible

/-- What a pattern that leads to a file walks and matches. -/
theorem gives_of_file_iff
    {content : Content}
    {executable : Bool}
    (leads : world.files.resolve world.cwd ⟨dropCurrent text⟩ = .ok place)
    (found : world.files.find? place = some (.file content executable)) :
    Gives environment world text files ↔
      ∃ glob, Glob.ofText (Glob.escape (dropCurrent text)) = .ok glob ∧
        let pattern : FilePattern := ⟨directoryOf (dropCurrent text), glob, environment.cwd⟩
        files = pattern.select (world.files.walk world.cwd pattern.base moduleDirectory) := by
  refine gives_iff ?_
  rw [FileSystem.kind?_of_resolve leads found]
  unfold interpret
  split
  · next empty =>
      rw [List.isEmpty_iff.mp empty] at leads
      cases leads
  · rfl

/-- Around a file the glob of a pattern matches the paths that are written as a walk from there
writes them. -/
theorem mem_matched_of_file_iff
    {content : Content}
    {executable : Bool}
    (tree : world.files.IsTree)
    (leads : world.files.resolve world.cwd ⟨text⟩ = .ok place)
    (found : world.files.find? place = some (.file content executable))
    (plain : Path.BeginsPlainly ⟨text⟩)
    (starts : pattern.start = directoryOf text) :
    path ∈ pattern.matched (world.files.walk world.cwd pattern.base moduleDirectory) ↔
      (directoryOf text).shortName ≠ moduleDirectory ∧
        (∃ names content executable,
          (Place.ofPath world.cwd (directoryOf text) ++ names, .file content executable) ∈
              world.files.entries ∧
            moduleDirectory ∉ names ∧ path = (directoryOf text).join ⟨Text.join ['/'] names⟩) ∧
        pattern.glob.doesMatch path.text = true := by
  have notDirectory : world.files.find? place ≠ some .directory := by simp [found]
  have solid := Path.isIdle_lastPart_of_resolve leads notDirectory
  have admissible := FileSystem.isAdmissible_of_resolve leads
  obtain ⟨followed, isDirectory⟩ := FileSystem.follow_parent leads solid (parent?_getD solid)
  rw [← starts] at followed isDirectory ⊢
  have isBase := resolve_base followed isDirectory
    (starts ▸ isAdmissible_directoryOf plain solid admissible)
  rw [mem_matched_iff tree.named isBase isDirectory, ne_eq, shortName_base]

/-- A glob that breaks off at a backslash of a path does not match the path as its directory and
its last part are written. -/
theorem not_doesMatch_join
    {glob : Glob}
    (plain : path.BeginsPlainly)
    (solid : Path.isIdle path.lastPart = false)
    (breaks : Glob.BreaksOff glob path.text) :
    glob.doesMatch ((directoryOf path.text).join ⟨path.lastPart⟩).text = false := by
  obtain ⟨front, idle, whole, joined, -, noBackslash, ends⟩ := Path.exists_spelling plain solid
  have simple : '/' ∉ path.lastPart := by
    have split := path.splitAt_eq
    exact Text.notMem_of_mem_splitAt (split ▸ List.mem_append_right _ List.mem_cons_self)
  rw [parent?_getD solid] at joined
  rw [joined]
  obtain rfl | slash := ends
  · rw [whole, List.nil_append] at breaks
    simpa using breaks.not_doesMatch []
  · obtain ⟨before, behind, split, unmatched⟩ := breaks.exists_front
    refine Bool.eq_false_iff.mpr fun isMatch => ?_
    obtain ⟨begins, noLonger⟩ := unmatched _ isMatch
    rw [whole] at split
    rcases Text.exists_of_append_cons split noBackslash with ⟨name, rfl⟩ | ⟨hidden, rfl⟩
    · -- The glob has the idle parts, and with them a slash that the last part does not have.
      rw [Text.bytes_append, Text.bytes_append, Text.bytes_append,
        List.prefix_append_right_inj] at begins
      refine simple (Glob.slash_mem_bytes.mp (begins.subset (List.mem_append_left _ ?_)))
      exact Glob.slash_mem_bytes.mpr slash
    · exact noLonger ⟨hidden ++ path.lastPart, by simp⟩

/-! ## What is selected -/

variable {content : Content} {executable : Bool}

/-- Without leading full stops a path leads to the same file. -/
theorem resolve_dropCurrent_file
    (leads : world.files.resolve world.cwd ⟨text⟩ = .ok place)
    (found : world.files.find? place = some (.file content executable)) :
    world.files.resolve world.cwd ⟨dropCurrent text⟩ = .ok place := by
  rcases resolve_dropCurrent leads with ⟨-, rfl, isDirectory⟩ | ⟨-, same⟩
  · rw [isDirectory] at found
    cases found
  · exact same

/-- A file stands in its directory, under its name. -/
theorem eq_append_of_file
    (tree : world.files.IsTree)
    (leads : world.files.resolve world.cwd ⟨text⟩ = .ok place)
    (found : world.files.find? place = some (.file content executable)) :
    Path.isIdle (Path.lastPart ⟨text⟩) = false ∧
      place = .ofPath world.cwd (directoryOf text) ++ [Path.lastPart ⟨text⟩] := by
  have notDirectory : world.files.find? place ≠ some .directory := by simp [found]
  have solid := Path.isIdle_lastPart_of_resolve leads notDirectory
  exact ⟨solid, tree.eq_append_lastPart leads notDirectory (parent?_getD solid)⟩

/-- A file that the walk writes as the pattern does is all that is selected. -/
theorem gives_file
    (tree : world.files.IsTree)
    (leads : world.files.resolve world.cwd ⟨text⟩ = .ok place)
    (found : world.files.find? place = some (.file content executable))
    (finds : FindsFile (dropCurrent text)) :
    Gives environment world text [⟨dropCurrent text⟩] := by
  have leadsToo := resolve_dropCurrent_file leads found
  have plain := beginsPlainly_dropCurrent text
  obtain ⟨noBackslash, rejoined, outside, kept⟩ := finds
  refine (gives_of_file_iff leadsToo found).mpr ⟨_, Glob.ofText_escape noBackslash, ?_⟩
  obtain ⟨-, isPlace⟩ := eq_append_of_file tree leadsToo found
  have proper : place ≠ [] := isPlace ▸ List.concat_ne_nil _ _
  refine (select_eq_singleton ?_ fun path among => ?_).symm
  · refine (mem_matched_of_file_iff tree leadsToo found plain rfl).mpr
      ⟨outside, ⟨[Path.lastPart ⟨dropCurrent text⟩], content, executable, ?_, ?_, ?_⟩, ?_⟩
    · exact isPlace ▸ FileSystem.mem_entries_of_find? found proper
    · simpa using Ne.symm kept
    · rw [Text.join, List.intercalate_singleton]
      exact rejoined.symm
    · exact Glob.doesMatch_escaped_iff.mpr rfl
  · obtain ⟨-, -, isMatch⟩ := (mem_matched_of_file_iff tree leadsToo found plain rfl).mp among
    exact congrArg Path.mk (Glob.doesMatch_escaped_iff.mp isMatch)

/-- A file that the walk writes in another way is not selected. -/
theorem not_gives_file
    (tree : world.files.IsTree)
    (leads : world.files.resolve world.cwd ⟨text⟩ = .ok place)
    (found : world.files.find? place = some (.file content executable))
    (misses : ¬ FindsFile (dropCurrent text))
    (gives : Gives environment world text files) :
    place ∉ files.map (Place.ofPath world.cwd) := by
  have leadsToo := resolve_dropCurrent_file leads found
  have plain := beginsPlainly_dropCurrent text
  generalize isWritten : dropCurrent text = written at leadsToo plain misses
  obtain ⟨solid, isPlace⟩ := eq_append_of_file tree leadsToo found
  obtain ⟨glob, read, rfl⟩ := (gives_of_file_iff (isWritten ▸ leadsToo) found).mp gives
  rw [isWritten] at read ⊢
  intro listed
  obtain ⟨path, selected, same⟩ := List.mem_map.mp listed
  have among := (lists_select _ _).sound path selected
  obtain ⟨outside, ⟨names, _, _, entry, notPruned, isPath⟩, isMatch⟩ :=
    (mem_matched_of_file_iff tree leadsToo found plain rfl).mp among
  have areNames := tree.named.of_append entry
  -- Of all paths of the walk just one leads to the file.
  obtain rfl : names = [Path.lastPart ⟨written⟩] := by
    rw [isPath, ofPath_join_names areNames, isPlace] at same
    exact List.append_cancel_left same
  rw [Text.join, List.intercalate_singleton] at isPath
  by_cases backslash : '\\' ∈ written
  · rw [← List.append_nil (Glob.escape written)] at read
    have breaks := Glob.breaksOff_of_ofText backslash (by simp) read
    rw [isPath, not_doesMatch_join (isWritten ▸ plain) solid breaks] at isMatch
    cases isMatch
  · rw [Glob.ofText_escape backslash] at read
    obtain rfl := Except.ok.inj read
    have isText := Glob.doesMatch_escaped_iff.mp isMatch
    refine misses ⟨backslash, ?_, outside, ?_⟩
    · rw [← isPath, ← isText]
    · simpa [eq_comm] using notPruned

end FilePattern
end StyleTypings
